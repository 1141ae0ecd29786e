import VectorSearch.Client.Mending

namespace VectorSearch

/-!
# The cluster over time

A coordinator that adds and repairs, call after call, over replicas that are
started on fresh directories, crash and restart, answer late or not at all.  The
coordinator itself may die inside a call, and another one, which knows nothing,
goes on when the requests of the dead one have ended.

At every moment the replicas of a shard are copies of one history.
-/

open GrpcCoordinator

/-- A coordinator of the cluster that knows nothing of what the shards have taken:
a new one, or one after `refresh`. -/
structure GrpcCoordinator.Blank (deployment : Deployment) (coordinator : GrpcCoordinator) : Prop where
  deployed : coordinator.Deployed deployment
  unknown : ∀ (shard : Nat) (position : Position), coordinator.lastSeqs[shard]? =
    some position → position = .unknown

theorem GrpcCoordinator.Blank.informed {deployment : Deployment} {coordinator : GrpcCoordinator}
    (blank : coordinator.Blank deployment) (histories : ReplicaId → History) :
    coordinator.Informed deployment histories :=
  ⟨blank.deployed, fun shard position isPosition => Or.inl (blank.unknown shard position isPosition)⟩

/-- The coordinator that writes at present, and the replicas. -/
structure Plant (G : Type) where
  client : GrpcCoordinator
  fleet : Fleet G

/-- The calls of a coordinator that change the replicas. -/
inductive Work where
  | add (vectors : Matrix Float32Bits) (payloads : Option (List Payload)) (name : Option String)
  | repair

def Work.program {D : Type} : Work → Coordinating D PUnit
  | .add vectors payloads name => GrpcCoordinator.add vectors payloads name
  | .repair => GrpcCoordinator.repair >>= fun _ => pure ⟨⟩

/-- The vectors have the dimension that the servers were started with. -/
def Work.Fits (deployment : Deployment) : Work → Prop
  | .add vectors _ _ => vectors.dim = deployment.dim
  | .repair => True

section Runs

variable {D G : Type} [LinearOrder D] (np : Numpy Float32Bits D G) (npz : Npz G) (deployment : Deployment)

/-- What happens.  A call starts when no request is under way. -/
inductive Plant.Step (plant : Plant G) : Plant G → Prop
  | moved {fleet : Fleet G} (moves : plant.fleet.Moves np npz deployment fleet) :
      Step plant ⟨plant.client, fleet⟩
  | replaced {client : GrpcCoordinator} (blank : client.Blank deployment) : Step plant ⟨client, plant.fleet⟩
  | ended {work : Work} {result : EStateM.Result Error GrpcCoordinator PUnit} {state : GrpcCoordinator}
      {fleet : Fleet G}
      (fits : work.Fits deployment) (quiet : plant.fleet.Resolved)
      (run : Remote.Runs (writeNetwork np npz deployment)
        ((work.program : Coordinating D PUnit) plant.client) plant.fleet
        result fleet) (left : result = .ok ⟨⟩ state ∨ ∃ error, result = .error error state) :
          Step plant ⟨state, fleet⟩
  | died {work : Work} {fleet : Fleet G} {client : GrpcCoordinator} (fits : work.Fits deployment)
      (quiet : plant.fleet.Resolved)
      (pass : Remote.Passes (writeNetwork np npz deployment)
        ((work.program : Coordinating D PUnit) plant.client) plant.fleet
        fleet) (blank : client.Blank deployment) : Step plant ⟨client, fleet⟩

/-- Servers that have not been started, on empty directories, and a coordinator. -/
structure Plant.Fresh (plant : Plant G) : Prop where
  empty : ∀ id, deployment.Member id → plant.fleet.nodes id = ⟨Disk.empty, none⟩
  idle : plant.fleet.flights = []
  blank : plant.client.Blank deployment

/-- What is true between two steps: the coordinator meets settled replicas of which
it knows nothing wrong, or one that knows nothing waits for requests to end. -/
inductive Plant.Good (origin : Nat → List Write) (plant : Plant G) : Prop
  | ready {copies : Nat → Copies Write} {histories : ReplicaId → History}
      (ready : Ready np npz deployment origin copies histories plant.client plant.fleet)
  | waits (blank : plant.client.Blank deployment) (guarded : Guarded np npz deployment origin plant.fleet)

variable {np npz deployment} {origin : Nat → List Write} {plant next : Plant G}

theorem Plant.Fresh.ready (positive : 0 < deployment.dim) (fresh : plant.Fresh deployment) :
    Ready np npz deployment (fun _ => []) (fun _ => Copies.even [])
      (fun id => ⟨deployment.params id.shard, []⟩) plant.client
      plant.fleet := by
  have copied : Copied deployment (fun _ => Copies.even []) fun id => ⟨deployment.params id.shard, []⟩ :=
    fun id _ => ⟨rfl, Copies.has_base _⟩
  refine ⟨⟨fun id member => ?_, ?_⟩, copied, ⟨⟨?_, ?_, ?_⟩, fun _ _ => List.prefix_rfl⟩, fresh.blank.informed _⟩
  · rw [fresh.empty id member, ← deployment.params_config id]
    exact recoverable_empty np npz (deployment.config id) positive
  · intro flight member
    rw [fresh.idle] at member
    exact absurd member List.not_mem_nil
  · exact fun _ _ => List.Pairwise.nil
  · exact fun _ _ _ _ _ _ member => absurd member List.not_mem_nil
  · exact fun _ _ _ member => absurd member List.not_mem_nil

theorem Plant.Fresh.good (positive : 0 < deployment.dim) (fresh : plant.Fresh deployment) :
    plant.Good np npz deployment fun _ => [] := .ready (fresh.ready positive)

/-- At every moment the replicas of a shard are copies. -/
theorem Plant.Good.guarded (good : plant.Good np npz deployment origin) :
    Guarded np npz deployment origin plant.fleet := by
  cases good with
  | ready ready => exact ready.sound.guarded ready.copied ready.settled
  | waits _ guarded => exact guarded

/-- When no request is under way a call may start. -/
theorem Plant.Good.starts (good : plant.Good np npz deployment origin) (quiet : plant.fleet.Resolved) :
    ∃ copies histories, Ready np npz deployment origin copies histories plant.client plant.fleet := by
  cases good with
  | ready ready => exact ⟨_, _, ready⟩
  | waits blank guarded =>
      rcases guarded with ⟨copies, first, sound, afloat⟩
      rcases afloat.settles quiet with ⟨histories, settled, copied, _⟩
      exact ⟨copies, histories, settled, copied, sound, blank.informed histories⟩

theorem GrpcCoordinator.Guarded.moves {fleet last : Fleet G} (steady : np.Steady)
    (guarded : Guarded np npz deployment origin fleet)
    (moves : fleet.Moves np npz deployment last) : Guarded np npz deployment origin last := by
  rcases guarded with ⟨copies, first, sound, afloat⟩
  exact ⟨copies, first, sound, afloat.moves steady moves⟩

/-- A call, however it ends. -/
theorem Work.ensures (steady : np.Steady) (positive : 0 < deployment.dim) {work : Work}
    (fits : work.Fits deployment)
    {copies : Nat → Copies Write} {histories : ReplicaId → History} {client : GrpcCoordinator} {fleet : Fleet G}
    (ready : Ready np npz deployment origin copies histories client fleet) :
    Client.Ensures (writeNetwork np npz deployment) (Guarded np npz deployment origin)
      (Meets np npz deployment histories (· = client)) (work.program : Coordinating D PUnit)
      (fun _ state fleet => Plant.Good np npz deployment origin ⟨state, fleet⟩)
      fun _ state fleet => Plant.Good np npz deployment origin ⟨state, fleet⟩ := by
  cases work with
  | add vectors payloads name =>
      by_cases filled : vectors.rows = []
      · unfold Work.program
        dsimp only
        rw [GrpcCoordinator.add, if_pos filled]
        apply Client.Ensures.pure
        rintro state fleet ⟨rfl, settled⟩
        exact .ready ⟨settled, ready.copied, ready.sound, ready.informed⟩
      · have adds : Client.Ensures (writeNetwork np npz deployment) (Guarded np npz deployment origin)
            (Meets np npz deployment histories (· = client)) (GrpcCoordinator.add vectors payloads name :
              Coordinating D PUnit) _ _ :=
          @add_ensures _ _ _ np npz deployment origin copies histories
            ⟨client, vectors, payloads, name⟩ steady positive fits
            filled ready.copied ready.sound ready.informed _
              (fun _ settled => ready.sound.guarded ready.copied settled)
            fun _ _ sound afloat => ⟨_, _, sound, afloat⟩
        refine adds.imp (fun _ _ holds => holds) ?_ ?_
        · rintro _ state fleet ⟨startId, encoded, later, added⟩
          exact .ready added.ready
        · rintro _ state fleet ⟨others, later, after, _⟩
          exact .ready after
  | repair =>
      have repairs : Client.Ensures (writeNetwork np npz deployment) (Guarded np npz deployment origin)
          (Meets np npz deployment histories (· = client)) (GrpcCoordinator.repair : Coordinating D _) _ _ :=
        repair_settled positive ready.sound ready.copied ready.informed fun later fleet mended settled =>
          ready.sound.guarded (mended.copied ready.copied) settled
      refine Client.Ensures.bind (repairs.imp (fun _ _ holds => holds) (fun _ _ _ holds => holds) ?_) fun _ =>
        Client.Ensures.pure ?_
      · rintro _ state fleet ⟨later, tended⟩
        exact .ready tended.ready
      · rintro state fleet ⟨later, tended⟩
        exact .ready tended.ready

theorem Plant.Good.step (steady : np.Steady) (positive : 0 < deployment.dim)
    (good : plant.Good np npz deployment origin)
    (step : plant.Step np npz deployment next) : next.Good np npz deployment origin := by
  cases step with
  | moved moves =>
      cases good with
      | ready ready => exact .ready ⟨ready.settled.moves moves, ready.copied, ready.sound, ready.informed⟩
      | waits blank guarded => exact .waits blank (guarded.moves steady moves)
  | replaced blank => exact .waits blank good.guarded
  | @ended work result state fleet fits quiet run left =>
      rcases good.starts quiet with ⟨copies, histories, ready⟩
      have after := ((Work.ensures (D := D) steady positive fits ready) plant.client plant.fleet
        ⟨rfl, ready.settled⟩).1 _ _ run
      rcases left with rfl | ⟨error, rfl⟩
      · exact after
      · exact after
  | died fits quiet pass blank =>
      rcases good.starts quiet with ⟨copies, histories, ready⟩
      exact .waits blank (((Work.ensures (D := D) steady positive fits ready) plant.client plant.fleet
        ⟨rfl, ready.settled⟩).2 _ pass)

/-- What is true of a cluster stays true over any number of steps. -/
theorem Plant.Good.run (steady : np.Steady) (positive : 0 < deployment.dim)
    (good : plant.Good np npz deployment origin)
    (run : Relation.ReflTransGen (Plant.Step np npz deployment) plant next) :
    next.Good np npz deployment origin := by
  induction run with
  | refl => exact good
  | tail _ step inductionHypothesis => exact inductionHypothesis.step steady positive step

end Runs

end VectorSearch
