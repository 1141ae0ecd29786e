import VectorSearch.Client.Repairing
import VectorSearch.Lib.Copies
import VectorSearch.Server.Adding

namespace VectorSearch

/-!
# The servers of a cluster while a coordinator writes

The replicas of all shards, and the write requests on their way to them.  A
request may be lost, arrive while its replica is down, be applied or refused,
and its answer may be lost; a replica may die inside it, and be restarted from
its files.  All that is assumed is that nothing becomes of a request any more
once its client has learned how it ended.

A request under way carries the write that its shard takes next, so whatever
becomes of it the replicas of the shard stay copies of one history.
-/

open Program

/-- What stays the same: how many replicas each shard has, how they were
started, and which address each is reached at.  The replicas of a shard have
the same seed and parameters. -/
structure Deployment where
  sizes : List Nat
  config : ReplicaId → Config
  dim : Nat
  peerAt : String → Option ReplicaId
  seeded : ∀ first second : ReplicaId, first.shard = second.shard → (config first).params =
    (config second).params

namespace Deployment

variable (deployment : Deployment)

/-- The replicas of a shard. -/
def group (shard : Nat) : List ReplicaId :=
  (List.range (deployment.sizes[shard]?.getD 0)).map fun place => ⟨shard, place⟩

def Member (id : ReplicaId) : Prop := id ∈ deployment.group id.shard

instance instDecidableMember (id : ReplicaId) : Decidable (deployment.Member id) :=
  inferInstanceAs (Decidable (id ∈ deployment.group id.shard))

def params (shard : Nat) : HnswParams := (deployment.config ⟨shard, 0⟩).params

theorem group_shard {shard : Nat} {id : ReplicaId} (member : id ∈ deployment.group shard) : id.shard =
    shard := by
  rcases List.mem_map.mp member with ⟨place, _, isReplica⟩
  rw [← isReplica]

theorem member_of_group {shard : Nat} {id : ReplicaId} (member : id ∈ deployment.group shard) :
    deployment.Member id := by
  unfold Member
  rw [deployment.group_shard member]
  exact member

theorem params_config (id : ReplicaId) : (deployment.config id).params = deployment.params id.shard :=
  deployment.seeded id ⟨id.shard, 0⟩ rfl

end Deployment

/-- A write request on its way, and how it ended for its client. -/
structure Flight where
  replica : ReplicaId
  request : AddRequest
  outcome : Option (Except RpcError AddResponse)

/-- The replicas and the write requests sent so far.  The handle of a request is
its place among them. -/
structure Fleet (G : Type) where
  nodes : ReplicaId → Node G
  flights : List Flight

namespace Fleet

variable {G : Type}

def put (fleet : Fleet G) (id : ReplicaId) (node : Node G) : Fleet G :=
  { fleet with nodes := Function.update fleet.nodes id node }

def send (fleet : Fleet G) (id : ReplicaId) (request : AddRequest) : Fleet G :=
  { fleet with flights := fleet.flights ++ [⟨id, request, none⟩] }

/-- How a request ends. -/
def resolve (fleet : Fleet G) (handle : Nat) (answer : Except RpcError AddResponse) : Fleet G :=
  { fleet with flights := fleet.flights.modify handle fun flight => { flight with outcome := some answer } }

@[simp] theorem put_flights (fleet : Fleet G) (id : ReplicaId) (node : Node G) :
    (fleet.put id node).flights = fleet.flights :=
  rfl

@[simp] theorem put_nodes_self (fleet : Fleet G) (id : ReplicaId) (node : Node G) :
    (fleet.put id node).nodes id = node :=
  Function.update_self ..

theorem put_nodes_of_ne (fleet : Fleet G) {id other : ReplicaId} (different : other ≠ id) (node : Node G) :
    (fleet.put id node).nodes other = fleet.nodes other := Function.update_of_ne different ..

theorem put_same (fleet : Fleet G) (id : ReplicaId) : fleet.put id (fleet.nodes id) = fleet := by
  unfold put
  rw [Function.update_eq_self]

@[simp] theorem resolve_nodes (fleet : Fleet G) (handle : Nat) (answer : Except RpcError AddResponse) :
    (fleet.resolve handle answer).nodes = fleet.nodes := rfl

@[simp] theorem send_nodes (fleet : Fleet G) (id : ReplicaId) (request : AddRequest) :
    (fleet.send id request).nodes = fleet.nodes := rfl

/-- No request is under way. -/
def Resolved (fleet : Fleet G) : Prop := ∀ flight ∈ fleet.flights, flight.outcome ≠ none

end Fleet

section Network

variable {D G : Type} [LinearOrder D] (np : Numpy Float32Bits D G) (npz : Npz G) (deployment : Deployment)

/-- What a client can learn of a write that ended: the response of a server that
returned, or some error. -/
inductive Learns (outcome : Outcome Disk (DurableShard G) Error) : Except RpcError AddResponse → Prop
  | response (returned : outcome.error = none) :
      Learns outcome (.ok (ShardServicer.addResponse (.durable outcome.memory)))
  | error (error : RpcError) : Learns outcome (.error error)

/-- What happens by itself. -/
inductive Fleet.Moves (fleet : Fleet G) : Fleet G → Prop
  | served {handle : Nat} {flight : Flight} {disk : Disk} {state : DurableShard G}
      {outcome : Outcome Disk (DurableShard G) Error} {answer : Except RpcError AddResponse}
      (isFlight : fleet.flights[handle]? = some flight) (waiting : flight.outcome = none)
      (alive : fleet.nodes flight.replica = ⟨disk, some state⟩)
      (run : (ShardServicer.addDurable np npz state flight.request).run dataDirectory disk = outcome)
      (learns : Learns outcome answer) :
      Moves fleet ((fleet.put flight.replica ⟨outcome.world, some outcome.memory⟩).resolve handle answer)
  | crashed {handle : Nat} {flight : Flight} {disk left : Disk} {state : DurableShard G} {error : RpcError}
      (isFlight : fleet.flights[handle]? = some flight) (waiting : flight.outcome = none)
      (alive : fleet.nodes flight.replica = ⟨disk, some state⟩)
      (crash : Crashed dataDirectory (ShardServicer.addDurable np npz state flight.request) disk left) :
      Moves fleet ((fleet.put flight.replica ⟨left.abandoned, none⟩).resolve handle (.error error))
  | lost {handle : Nat} {flight : Flight} {error : RpcError} (isFlight : fleet.flights[handle]? = some flight)
      (waiting : flight.outcome = none) : Moves fleet (fleet.resolve handle (.error error))
  | other {id : ReplicaId} {node : Node G} {events : List (Event G)}
      (step : Serves np npz (fun _ request => request.Reads) (deployment.config id)
        (fleet.nodes id) events node) :
      Moves fleet (fleet.put id node)

/-- How a `SyncFrom` can end for its client. -/
inductive LearnsSync (outcome : Outcome Exchange (Syncing G) Error) : Except RpcError SyncFromResponse → Prop
  | response (returned : outcome.error = none) :
      LearnsSync outcome (.ok (ShardServicer.syncResponse outcome.memory))
  | error (error : RpcError) : LearnsSync outcome (.error error)

/-- What a `SyncFrom` does.  The peer is the replica behind the address; it may
checkpoint and restart between its answers, and takes no write.  The call may
break off, the replica may die in it, and it may not be reached at all. -/
inductive Fleet.Syncs (fleet : Fleet G) (id : ReplicaId) (address : String) :
    Except RpcError SyncFromResponse → Fleet G → Prop
  | ended {source : ReplicaId} {disk : Disk} {state : DurableShard G}
      {peer : Timeline np npz (deployment.config source) deployment.dim} {replies : Nat → Replies}
      {outcome : Outcome Exchange (Syncing G) Error} {answer : Except RpcError SyncFromResponse}
      (isPeer : deployment.peerAt address = some source) (alive : fleet.nodes id = ⟨disk, some state⟩)
      (now : fleet.nodes source = ⟨(peer.at_ 0).disk, some (peer.at_ 0).state⟩)
      (quiet : ∀ time, (peer.at_ time).history = (peer.at_ 0).history) (answered : Answered np npz peer replies)
      (run : (ShardServicer.syncFromDurable np npz state address replies).run exchange ⟨disk, 0⟩ = outcome)
      (learns : LearnsSync outcome answer) :
      Syncs fleet id address answer
        ((fleet.put source ⟨(peer.at_ outcome.world.answered).disk,
          some (peer.at_ outcome.world.answered).state⟩).put id
          ⟨outcome.world.disk, some outcome.memory.shard⟩)
  | crashed {source : ReplicaId} {disk : Disk} {state : DurableShard G}
      {peer : Timeline np npz (deployment.config source) deployment.dim} {replies : Nat → Replies}
      {left : Exchange}
      {error : RpcError} (isPeer : deployment.peerAt address = some source)
      (alive : fleet.nodes id = ⟨disk, some state⟩)
      (now : fleet.nodes source = ⟨(peer.at_ 0).disk, some (peer.at_ 0).state⟩)
      (quiet : ∀ time, (peer.at_ time).history = (peer.at_ 0).history) (answered : Answered np npz peer replies)
      (crash : Crashed exchange (ShardServicer.syncFromDurable np npz state address replies) ⟨disk, 0⟩ left) :
      Syncs fleet id address (.error error)
        ((fleet.put source ⟨(peer.at_ left.answered).disk, some (peer.at_ left.answered).state⟩).put id
          ⟨left.disk.abandoned, none⟩)
  | unreached (error : RpcError) : Syncs fleet id address (.error error) fleet

/-- The replicas as a coordinator meets them.  The answer to a write is waited
for until the request has ended. -/
def writeNetwork : Network Rpc (Rpc.Answer D) (Fleet G) where
  answers := fun
    | .status id => fun fleet answer last =>
        last = fleet ∧ ((∃ disk state, fleet.nodes id = ⟨disk, some state⟩ ∧
          answer = .ok (ShardServicer.status (.durable state))) ∨ ∃ error : RpcError, answer = .error error)
    | .startAdd id request => fun fleet handle last => handle = fleet.flights.length ∧
        last = fleet.send id request
    | .finishAdd handle => fun fleet answer last =>
        last = fleet ∧ ∃ flight, fleet.flights[handle]? = some flight ∧ flight.outcome = some answer
    | .syncFrom id address => fun fleet answer last => fleet.Syncs np npz deployment id address answer last
    | .startSearch _ _ | .finishSearch _ | .monotonic => fun fleet _ last => last = fleet
  moves := Fleet.Moves np npz deployment

end Network

/-! ## Histories as copies -/

/-- A history that is one of the copies of its shard. -/
structure Copies.Keeps (copies : Copies Write) (params : HnswParams) (history : History) : Prop where
  params : history.params = params
  has : copies.Has history.writes

namespace Copies.Keeps

variable {copies : Copies Write} {params : HnswParams} {history other : History}

theorem eq_of_length (keeps : copies.Keeps params history) (others : copies.Keeps params other)
    (same : history.length = other.length) : history = other := by
  ext1
  · exact keeps.params.trans others.params.symm
  · exact keeps.has.eq_of_length others.has same

theorem begins (keeps : copies.Keeps params history) (others : copies.Keeps params other)
    (order : history.length ≤ other.length) : history.Begins other :=
  ⟨keeps.params.trans others.params.symm, keeps.has.prefix_of_length_le others.has order⟩

/-- A replica copies from one that is ahead of it. -/
theorem between (keeps : copies.Keeps params history) (others : copies.Keeps params other) {middle : History}
    (front : history.Begins middle) (back : middle.Begins other) : copies.Keeps params middle :=
  ⟨front.params.symm.trans keeps.params, keeps.has.between others.has front.writes back.writes⟩

/-- The write that is under way is the one behind the base. -/
theorem next (keeps : copies.Keeps params history) (inOrder : copies.base.length + 1 = history.length + 1) :
    history.writes = copies.base :=
  (keeps.has.begins.eq_of_length (Nat.succ.inj inOrder)).symm

theorem push (keeps : copies.Keeps params history) (inOrder : copies.base.length + 1 = history.length + 1)
    {write : Write} (isExtra : copies.extra = some write) :
    copies.Keeps params (history.push write) ∧ (history.push write).writes = copies.all := by
  have whole : (history.push write).writes = copies.base ++ [write] := by
    rw [← keeps.next inOrder]
    rfl
  refine ⟨⟨keeps.params, whole ▸ Copies.has_push isExtra⟩, ?_⟩
  rw [whole, Copies.all, isExtra]
  rfl

end Copies.Keeps

/-- A request under way: it carries the write that its shard takes next. -/
structure AddRequest.Due (dim : Nat) (copies : Copies Write) (request : AddRequest) : Prop where
  carries : ∃ vectors, request.Carries vectors ∧ vectors.dim = dim
  next : request.seq = copies.base.length + 1
  extra : ∀ write, request.write = some write → copies.extra = some write

/-! ## What holds while requests are under way -/

/-- A response that has arrived from a replica to a request sent since `first`. -/
def Fleet.Heard {G : Type} (fleet : Fleet G) (first : Nat) (id : ReplicaId) (response : AddResponse) : Prop :=
  ∃ handle flight, first ≤ handle ∧ fleet.flights[handle]? = some flight ∧ flight.replica = id ∧
    flight.outcome = some (.ok response)

/-- The ids the copies of a shard come to hold. -/
def Copies.ids (copies : Copies Write) : List Int := copies.all.flatMap Write.globalIds

section Assertions

variable {D G : Type} [LinearOrder D] (np : Numpy Float32Bits D G) (npz : Npz G) (deployment : Deployment)

/-- A replica runs, or can be restarted, on one of the copies of its shard; and
on the longest one if it has answered. -/
structure Stands (copies : Copies Write) (fleet : Fleet G) (first : Nat) (id : ReplicaId)
    (history : History) : Prop where
  holds : (fleet.nodes id).Holds np npz (deployment.config id) deployment.dim history
  keeps : copies.Keeps (deployment.params id.shard) history
  heard : ∀ response, fleet.Heard first id response →
    history.writes = copies.all ∧ copies.extra ≠ none ∧ response.size = copies.ids.length

/-- The requests sent since `first` carry the writes the shards take next, and
those before have ended. -/
structure Afloat (copies : Nat → Copies Write) (first : Nat) (fleet : Fleet G) : Prop where
  stands : ∀ id, deployment.Member id → ∃ history, Stands np npz deployment
    (copies id.shard) fleet first id history
  started : first ≤ fleet.flights.length
  waiting : ∀ handle flight, fleet.flights[handle]? = some flight → flight.outcome = none →
    first ≤ handle ∧ deployment.Member flight.replica ∧ flight.request.Due deployment.dim
      (copies flight.replica.shard)

end Assertions

section Steps

variable {D G : Type} [LinearOrder D] {np : Numpy Float32Bits D G} {npz : Npz G} {deployment : Deployment}
  {fleet next : Fleet G} {handle first : Nat} {flight : Flight} {answer : Except RpcError AddResponse}
  {id : ReplicaId}

omit [LinearOrder D] in
theorem Fleet.flights_resolve {other : Nat} {found : Flight}
    (isFound : (fleet.resolve handle answer).flights[other]? = some found)
    (isFlight : fleet.flights[handle]? = some flight) :
    fleet.flights[other]? = some found ∨ other = handle ∧ found = { flight with outcome := some answer } := by
  unfold Fleet.resolve at isFound
  rw [List.getElem?_modify] at isFound
  rcases Option.map_eq_some_iff.mp isFound with ⟨old, isOld, rfl⟩
  by_cases same : handle = other
  · subst same
    cases isFlight.symm.trans isOld
    exact Or.inr ⟨rfl, if_pos rfl⟩
  · rw [if_neg same]
    exact Or.inl isOld

/-- A response that is new is the one just learned. -/
theorem Fleet.Heard.of_resolve {response : AddResponse}
    (heard : (fleet.resolve handle answer).Heard first id response)
    (isFlight : fleet.flights[handle]? = some flight) :
    fleet.Heard first id response ∨ flight.replica = id ∧ answer = .ok response := by
  rcases heard with ⟨other, found, later, isFound, isReplica, isOutcome⟩
  rcases Fleet.flights_resolve isFound isFlight with old | ⟨rfl, rfl⟩
  · exact Or.inl ⟨other, found, later, old, isReplica, isOutcome⟩
  · exact Or.inr ⟨isReplica, Option.some.inj isOutcome⟩

variable {copies : Nat → Copies Write} {history later : History} {node : Node G}

/-- A request ends, and its replica has the history it had or the longest one. -/
theorem Stands.resolve (stands : Stands np npz deployment (copies id.shard) fleet first id history)
    (isFlight : fleet.flights[handle]? = some flight)
    (holds : node.Holds np npz (deployment.config id) deployment.dim later)
    (keeps : (copies id.shard).Keeps (deployment.params id.shard) later)
    (kept : later = history ∨ later.writes = (copies id.shard).all)
    (learned : ∀ response, answer = .ok response → later.writes = (copies id.shard).all ∧
      (copies id.shard).extra ≠ none ∧ response.size = (copies id.shard).ids.length) :
    Stands np npz deployment (copies id.shard) ((fleet.put id node).resolve handle answer) first id later where
  holds := by
    rw [Fleet.resolve_nodes, Fleet.put_nodes_self]
    exact holds
  keeps := keeps
  heard := by
    intro response heard
    rcases heard.of_resolve isFlight with old | ⟨_, new⟩
    · rcases stands.heard response old with ⟨whole, some, size⟩
      rcases kept with rfl | longest
      · exact ⟨whole, some, size⟩
      · exact ⟨longest, some, size⟩
    · exact learned response new

theorem Afloat.resolve (afloat : Afloat np npz deployment copies first fleet)
    (isFlight : fleet.flights[handle]? = some flight)
    (stands : ∃ later, Stands np npz deployment (copies flight.replica.shard)
      ((fleet.put flight.replica node).resolve handle answer) first flight.replica later) :
    Afloat np npz deployment copies first ((fleet.put flight.replica node).resolve handle answer) where
  stands := by
    intro other member
    by_cases same : other = flight.replica
    · subst same
      exact stands
    · rcases afloat.stands other member with ⟨history, old⟩
      refine ⟨history, ?_, old.keeps, ?_⟩
      · rw [Fleet.resolve_nodes, Fleet.put_nodes_of_ne _ same]
        exact old.holds
      · intro response heard
        rcases heard.of_resolve isFlight with before | ⟨own, _⟩
        · exact old.heard response before
        · exact absurd own.symm same
  started := by
    unfold Fleet.resolve
    rw [List.length_modify]
    exact afloat.started
  waiting := by
    intro other found isFound waits
    rcases Fleet.flights_resolve isFound isFlight with old | ⟨_, rfl⟩
    · exact afloat.waiting other found old waits
    · cases waits

/-- A request that is under way finds its replica on a history it continues, or
is refused. -/
theorem Afloat.meets (steady : np.Steady) (afloat : Afloat np npz deployment copies first fleet)
    (isFlight : fleet.flights[handle]? = some flight) (waiting : flight.outcome = none) {disk : Disk}
    {state : DurableShard G} (alive : fleet.nodes flight.replica = ⟨disk, some state⟩) :
    ∃ history, Stands np npz deployment (copies flight.replica.shard) fleet first flight.replica history ∧
      Running np npz (deployment.config flight.replica) deployment.dim history state disk ∧
      ((∃ write, Applied np npz (deployment.config flight.replica) deployment.dim history state
        disk flight.request write ∧
          (copies flight.replica.shard).Keeps (deployment.params flight.replica.shard) (history.push write) ∧
          (history.push write).writes = (copies flight.replica.shard).all ∧
          (copies flight.replica.shard).extra = some write) ∨
        ∃ error, ShardServicer.addDurable np npz state flight.request = .raised state error) := by
  rcases afloat.waiting handle flight isFlight waiting with ⟨_, member, due⟩
  rcases afloat.stands flight.replica member with ⟨history, stands⟩
  have running := stands.holds
  rw [alive] at running
  rcases due.carries with ⟨vectors, carries, sameDim⟩
  refine ⟨history, stands, running, (addDurable_applies steady running carries sameDim).imp_left ?_⟩
  rintro ⟨write, applied⟩
  have isExtra := due.extra write applied.isWrite
  have inOrder : (copies flight.replica.shard).base.length + 1 = history.length + 1 := by
    rcases applied.inOrder with none | same
    · exact absurd (due.next.symm.trans none) (Nat.succ_ne_zero _)
    · exact due.next.symm.trans same
  exact ⟨write, applied, (stands.keeps.push inOrder isExtra).1, (stands.keeps.push inOrder isExtra).2, isExtra⟩

/-- What happens by itself keeps the replicas of a shard copies of one history. -/
theorem Afloat.moves (steady : np.Steady) (afloat : Afloat np npz deployment copies first fleet)
    (moves : fleet.Moves np npz deployment next) : Afloat np npz deployment copies first next := by
  cases moves with
  | served isFlight waiting alive run learns =>
      subst run
      rcases afloat.meets steady isFlight waiting alive with
        ⟨history, stands, running, ⟨write, applied, keeps, whole, isExtra⟩ | ⟨error, refused⟩⟩
      · rcases applied.run with ⟨reached, kept, complete, holds⟩
        rw [complete] at learns ⊢
        refine afloat.resolve isFlight
          ⟨history.push write, stands.resolve isFlight holds keeps (Or.inr whole) ?_⟩
        rintro response rfl
        cases learns
        refine ⟨whole, isExtra ▸ Option.some_ne_none _, ?_⟩
        have filled := holds.sound.filled np holds.contents
        change kept.shard.contents.globalIds.length = _
        rw [filled.globalIds, History.globalIds, whole]
        rfl
      · rw [refused] at learns ⊢
        refine afloat.resolve isFlight ⟨history, stands.resolve isFlight running stands.keeps (Or.inl rfl) ?_⟩
        rintro response rfl
        cases learns with
        | response returned => cases returned
  | crashed isFlight waiting alive crash =>
      rcases afloat.meets steady isFlight waiting alive with
        ⟨history, stands, running, ⟨write, applied, keeps, whole, isExtra⟩ | ⟨error, refused⟩⟩
      · rcases applied.crash _ crash with absent | present
        · refine afloat.resolve isFlight
            ⟨history, stands.resolve isFlight absent.abandoned stands.keeps (Or.inl rfl) ?_⟩
          intro response impossible
          cases impossible
        · refine afloat.resolve isFlight
            ⟨history.push write, stands.resolve isFlight present.abandoned keeps (Or.inr whole) ?_⟩
          intro response impossible
          cases impossible
      · rw [refused] at crash
        cases crash
        refine afloat.resolve isFlight
          ⟨history, stands.resolve isFlight running.recoverable.abandoned stands.keeps (Or.inl rfl) ?_⟩
        intro response impossible
        cases impossible
  | @lost handle flight error isFlight waiting =>
      rcases afloat.waiting handle flight isFlight waiting with ⟨_, member, _⟩
      rcases afloat.stands flight.replica member with ⟨history, stands⟩
      have ended : Stands np npz deployment (copies flight.replica.shard)
          ((fleet.put flight.replica (fleet.nodes flight.replica)).resolve handle (.error error)) first
            flight.replica history := by
        refine stands.resolve isFlight stands.holds stands.keeps (Or.inl rfl) ?_
        intro response impossible
        cases impossible
      have whole := afloat.resolve isFlight ⟨history, ended⟩
      rwa [Fleet.put_same] at whole
  | @other id node events step =>
      refine ⟨?_, afloat.started, afloat.waiting⟩
      intro other member
      rcases afloat.stands other member with ⟨history, stands⟩
      refine ⟨history, ?_, stands.keeps, stands.heard⟩
      by_cases same : other = id
      · subst same
        rw [Fleet.put_nodes_self]
        exact step.reads stands.holds
      · rw [Fleet.put_nodes_of_ne _ same]
        exact stands.holds

end Steps

end VectorSearch
