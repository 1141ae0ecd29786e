import VectorSearch.Client.Writers

namespace VectorSearch

/-!
# What the replicas hold over time

The guarantees of a cluster that is written to by one coordinator at a time, as
they are seen on its servers: the replicas of a shard agree, no id is given to
two rows, and the rows of a call that has returned stay on every replica.
-/

open GrpcCoordinator Program

section Yields

variable {D G : Type} [LinearOrder D] (np : Numpy Float32Bits D G) (npz : Npz G)

/-- The shard of a server, or the one it gets when it is started on its files. -/
inductive Node.Yields (config : Config) (node : Node G) (state : DurableShard G) : Prop
  | up (isUp : node.process = some state)
  | down {left : Disk} (isDown : node.process = none)
      (run : (DurableShard.openShard np npz config node.disk).run dataDirectory node.disk =
        ⟨left, some state, none⟩)

variable {np npz} {config : Config} {dim : Nat} {history : History} {node : Node G} {state : DurableShard G}

theorem Node.Holds.yields (holds : node.Holds np npz config dim history) : ∃ state,
    node.Yields np npz config state := by
  cases isProcess : node.process with
  | some state => exact ⟨state, .up isProcess⟩
  | none =>
      unfold Node.Holds at holds
      rw [isProcess] at holds
      rcases open_recovers np npz holds with ⟨state, left, run, _⟩
      exact ⟨state, .down isProcess run⟩

theorem Node.Yields.running (yields : node.Yields np npz config state)
    (holds : node.Holds np npz config dim history) :
    ∃ disk, Running np npz config dim history state disk := by
  unfold Node.Holds at holds
  cases yields with
  | up isUp =>
      rw [isUp] at holds
      exact ⟨_, holds⟩
  | down isDown run =>
      rw [isDown] at holds
      rcases open_recovers np npz holds with ⟨found, left, opened, running⟩
      rw [run] at opened
      cases opened
      exact ⟨_, running⟩

end Yields

/-! ## The rows of a shard -/

section Rows

variable {D G : Type} (np : Numpy Float32Bits D G)

/-- A row as it is stored. -/
def storedRow (row : PlacedRow Float32Bits) : PlacedRow Float32Bits := (row.1, np.normalize row.2.1, row.2.2)

/-- The rows that a shard holds: id, stored vector and payload text. -/
def DurableShard.rows (state : DurableShard G) : List (PlacedRow Float32Bits) :=
  state.shard.contents.globalIds.zip (state.shard.contents.graph.data.zip state.shard.contents.payloads)

/-- The rows of a write, as they are stored. -/
def Write.stored (write : Write) : List (PlacedRow Float32Bits) :=
  write.globalIds.zip ((write.vectors.rows.map np.normalize).zip write.payloads)

/-- Storing changes the vectors of the rows, and nothing else. -/
theorem zip_stored (ids : List Int) (vectors : List (List Float32Bits)) (texts : List String) :
    (ids.zip (vectors.zip texts)).map (storedRow np) = ids.zip ((vectors.map np.normalize).zip texts) := by
  have parts : storedRow np = Prod.map id (Prod.map np.normalize id) := by
    funext row
    rfl
  rw [parts, ← List.zip_map, ← List.zip_map, List.map_id, List.map_id]

theorem flatMap_stored (writes : List Write) : writes.flatMap (Write.stored np) =
    (writes.flatMap Write.items).map (storedRow np) := by
  rw [List.map_flatMap]
  congr 1
  funext write
  exact (zip_stored np _ _ _).symm

/-- Writes that hold exactly these rows. -/
theorem gathered_stored {writes : List Write} {rows : List (PlacedRow Float32Bits)}
    (isRows : gathered writes = RoutedBatch.ofRows rows) : writes.flatMap (Write.stored np) =
    rows.map (storedRow np) := by
  rw [flatMap_stored, gathered_items isRows]

variable {np} [LinearOrder D] {npz : Npz G} {config : Config} {dim : Nat} {history : History}
  {state : DurableShard G}
  {disk : Disk}

theorem Running.rows (running : Running np npz config dim history state disk) :
    state.rows = history.writes.flatMap (Write.stored np) := by
  have filled := running.sound.filled np running.contents
  rw [DurableShard.rows, filled.globalIds, filled.data, filled.payloads, flatMap_stored,
    ← flatMap_items, ← zip_stored]
  rfl

end Rows

/-- Two replicas of one shard: one of them has at most one write more, what the
other one holds is at the beginning of what it holds, and after the same number
of writes they are equal. -/
structure DurableShard.Agrees {G : Type} (first second : DurableShard G) : Prop where
  near : first.lastSeq ≤ second.lastSeq + 1
  within : first.lastSeq ≤ second.lastSeq → first.rows <+: second.rows
  same : first.lastSeq = second.lastSeq → first.shard.contents = second.shard.contents

section Guarded

variable {D G : Type} [LinearOrder D] {np : Numpy Float32Bits D G} {npz : Npz G} {deployment : Deployment}
  {copies : Nat → Copies Write} {fleet : Fleet G} {first : Nat} {id other : ReplicaId}
  {state second : DurableShard G}

/-- What a replica yields is the shard of one of the copies. -/
theorem Afloat.yields (afloat : Afloat np npz deployment copies first fleet) (member : deployment.Member id)
    (yields : (fleet.nodes id).Yields np npz (deployment.config id) state) :
    ∃ history disk, (copies id.shard).Keeps (deployment.params id.shard) history ∧
      Running np npz (deployment.config id) deployment.dim history state disk := by
  rcases afloat.stands id member with ⟨history, stands⟩
  rcases yields.running stands.holds with ⟨disk, running⟩
  exact ⟨history, disk, stands.keeps, running⟩

theorem Afloat.agrees (afloat : Afloat np npz deployment copies first fleet) (member : deployment.Member id)
    (others : deployment.Member other) (sameShard : id.shard = other.shard)
    (yields : (fleet.nodes id).Yields np npz (deployment.config id) state)
    (yields' : (fleet.nodes other).Yields np npz (deployment.config other) second) : state.Agrees second := by
  rcases afloat.yields member yields with ⟨history, disk, keeps, running⟩
  rcases afloat.yields others yields' with ⟨history', disk', keeps', running'⟩
  rw [← sameShard] at keeps'
  refine ⟨?_, ?_, ?_⟩
  · rw [running.lastSeq, running'.lastSeq]
    exact keeps.has.near keeps'.has
  · intro order
    rw [running.lastSeq, running'.lastSeq] at order
    rw [running.rows, running'.rows]
    exact (keeps.begins keeps' order).writes.flatMap _
  · intro same
    rw [running.lastSeq, running'.lastSeq] at same
    have contents := running.contents
    rw [keeps.eq_of_length keeps' same, running'.contents] at contents
    exact (Option.some.inj contents).symm

theorem Afloat.ids (afloat : Afloat np npz deployment copies first fleet) (member : deployment.Member id)
    (yields : (fleet.nodes id).Yields np npz (deployment.config id) state) :
    state.shard.contents.globalIds <+: (copies id.shard).ids := by
  rcases afloat.yields member yields with ⟨history, disk, keeps, running⟩
  rw [(running.sound.filled np running.contents).globalIds]
  exact keeps.has.within.flatMap _

end Guarded

/-! ## Two replicas -/

section Sample

/-- One shard with two replicas. -/
def pairDeployment : Deployment where
  sizes := [2]
  config := fun _ => smallConfig
  dim := 2
  peerAt := fun peer => if peer = "a" then some ⟨0, 0⟩ else if peer = "b" then some ⟨0, 1⟩ else none
  seeded := fun _ _ _ => rfl

def pairClient : GrpcCoordinator := .init [["a", "b"]] none 30000

def pairFleet : Fleet Unit := ⟨fun _ => ⟨Disk.empty, none⟩, []⟩

def pairStarted : Fleet Unit :=
  (pairFleet.put ⟨0, 0⟩ ⟨emptyLog, some emptyShard⟩).put ⟨0, 1⟩ ⟨emptyLog, some emptyShard⟩

theorem pair_members {id : ReplicaId} (member : pairDeployment.Member id) : id = ⟨0, 0⟩ ∨ id = ⟨0, 1⟩ := by
  have inside : id.shard < 1 := member_inside member
  rcases id with ⟨shard, place⟩
  have first : shard = 0 := Nat.lt_one_iff.mp inside
  subst first
  change (⟨0, place⟩ : ReplicaId) ∈ [⟨0, 0⟩, ⟨0, 1⟩] at member
  simpa using member

theorem pairClient_blank : pairClient.Blank pairDeployment := by
  refine ⟨⟨rfl, ?_, ?_, ?_, rfl⟩, ?_⟩
  · intro group member
    rw [List.mem_singleton.mp member]
    decide
  · intro id member
    rcases pair_members member with rfl | rfl
    · rfl
    · rfl
  · intro group member
    rw [List.mem_singleton.mp member]
    exact List.cons_ne_nil _ _
  · intro shard position isPosition
    exact List.mem_singleton.mp (List.mem_of_getElem? isPosition)

theorem pair_fresh : (⟨pairClient, pairFleet⟩ : Plant Unit).Fresh pairDeployment :=
    ⟨fun _ _ => rfl, rfl, pairClient_blank⟩

theorem pair_starts : Relation.ReflTransGen (Plant.Step smallNumpy smallNpz pairDeployment)
    ⟨pairClient, pairFleet⟩
    ⟨pairClient, pairStarted⟩ :=
  .tail (.single (.moved (.other (.opened rfl)))) (.moved (.other (.opened rfl)))

def nextRequest : AddRequest := { axisRequest with seq := 1 }

theorem nextRequest_run :
    (ShardServicer.addDurable smallNumpy smallNpz emptyShard nextRequest).run dataDirectory emptyLog =
      ⟨axisLog, axisShard, none⟩ := by
  have numbered : ShardServicer.addDurable smallNumpy smallNpz emptyShard nextRequest =
      (DurableShard.addBatch smallNumpy smallNpz emptyShard axisWrite.globalIds axisWrite.vectors []
        (some 1)).mapError
        abortOutOfOrder := rfl
  have given : axisWrite.Given [] := rfl
  have logged : DurableShard.addBatch smallNumpy smallNpz emptyShard axisWrite.globalIds axisWrite.vectors
    [] (some 1) = _ :=
    addBatch_logs smallNumpy smallNpz given (Or.inr rfl) (by decide)
  have applied : DurableShard.applyLogged smallNumpy smallNpz emptyShard axisWrite.globalIds
      axisWrite.vectors [] = .done axisShard := rfl
  have synced : emptyShard.config.fsync = true := rfl
  have bytes : FileOp.perform
      (.appendLog (FramedLog.frame crc32 (axisWrite.body (emptyShard.lastSeq + 1)))) emptyLog = axisLog := by
    rw [axisLog, logBytes_singleton]
    rfl
  rw [numbered, run_mapError]
  simp only [logged, DurableShard.appendRecord, synced, if_true, applied, Program.run, dataDirectory, bytes]
  rfl

def pairSent : Fleet Unit := (pairStarted.send ⟨0, 0⟩ nextRequest).send ⟨0, 1⟩ nextRequest

def pairHalf : Fleet Unit := (pairSent.put ⟨0, 0⟩ ⟨axisLog, some axisShard⟩).resolve 0 (.ok ⟨1⟩)

def pairFull : Fleet Unit := (pairHalf.put ⟨0, 1⟩ ⟨axisLog, some axisShard⟩).resolve 1 (.ok ⟨1⟩)

def axisCall : AddCall := ⟨pairClient, axisWrite.vectors, none, none⟩

theorem pair_learns : Learns (⟨axisLog, axisShard, none⟩ : Outcome Disk (DurableShard Unit) Error)
    (.ok ⟨1⟩) := by
  have size : ShardServicer.addResponse (.durable axisShard) = ⟨1⟩ := rfl
  rw [← size]
  exact .response rfl

theorem pair_half : pairSent.Moves smallNumpy smallNpz pairDeployment pairHalf :=
  @Fleet.Moves.served Int Unit _ smallNumpy smallNpz pairDeployment pairSent 0
    ⟨⟨0, 0⟩, nextRequest, none⟩ _ _ _ _ rfl rfl rfl
    nextRequest_run pair_learns

theorem pair_full : pairHalf.Moves smallNumpy smallNpz pairDeployment pairFull :=
  @Fleet.Moves.served Int Unit _ smallNumpy smallNpz pairDeployment pairHalf 1
    ⟨⟨0, 1⟩, nextRequest, none⟩ _ _ _ _ rfl rfl rfl
    nextRequest_run pair_learns

def pairWritten : GrpcCoordinator := { pairClient with size := 1, shardSizes := [1], lastSeqs := [.agreed 1] }

theorem pair_returns : Remote.Runs (writeNetwork smallNumpy smallNpz pairDeployment)
    ((add axisCall.vectors axisCall.payloads axisCall.name : Coordinating Int PUnit) pairClient) pairStarted
    (.ok ⟨⟩ pairWritten) pairFull := by
  refine Remote.Runs.answered (.ok (ShardServicer.status (.durable emptyShard)))
    ⟨rfl, Or.inl ⟨emptyLog, emptyShard, rfl, rfl⟩⟩ ?_
  refine Remote.Runs.answered (.ok (ShardServicer.status (.durable emptyShard)))
    ⟨rfl, Or.inl ⟨emptyLog, emptyShard, rfl, rfl⟩⟩ ?_
  refine Remote.Runs.answered (0 : Nat) ⟨rfl, rfl⟩ ?_
  refine Remote.Runs.answered (1 : Nat) ⟨rfl, rfl⟩ ?_
  refine Remote.Runs.ask (.tail (.single pair_half) pair_full)
    ⟨rfl, ⟨⟨0, 0⟩, nextRequest, some (.ok ⟨1⟩)⟩, rfl, rfl⟩ ?_
  refine Remote.Runs.answered (.ok ⟨1⟩) ⟨rfl, ⟨⟨0, 1⟩, nextRequest, some (.ok ⟨1⟩)⟩, rfl, rfl⟩ ?_
  exact Remote.Runs.done
/-- The coordinator dies when one replica has answered. -/
theorem pair_dies : Remote.Passes (writeNetwork smallNumpy smallNpz pairDeployment)
    ((add axisCall.vectors axisCall.payloads axisCall.name : Coordinating Int PUnit) pairClient)
      pairStarted pairHalf := by
  refine Remote.Passes.answered (.ok (ShardServicer.status (.durable emptyShard)))
    ⟨rfl, Or.inl ⟨emptyLog, emptyShard, rfl, rfl⟩⟩ ?_
  refine Remote.Passes.answered (.ok (ShardServicer.status (.durable emptyShard)))
    ⟨rfl, Or.inl ⟨emptyLog, emptyShard, rfl, rfl⟩⟩ ?_
  refine Remote.Passes.answered (0 : Nat) ⟨rfl, rfl⟩ ?_
  refine Remote.Passes.answered (1 : Nat) ⟨rfl, rfl⟩ ?_
  exact Remote.Passes.waiting (.single pair_half)

theorem pairStarted_quiet : pairStarted.Resolved := fun _ member => absurd member List.not_mem_nil

theorem pair_reaches : Relation.ReflTransGen (Plant.Step smallNumpy smallNpz pairDeployment)
    ⟨pairClient, pairFleet⟩
    ⟨pairClient, pairHalf⟩ := by
  have dies : Plant.Step smallNumpy smallNpz pairDeployment ⟨pairClient, pairStarted⟩ ⟨pairClient, pairHalf⟩ :=
    @Plant.Step.died Int Unit _ smallNumpy smallNpz pairDeployment ⟨pairClient, pairStarted⟩
      (.add axisCall.vectors axisCall.payloads axisCall.name) pairHalf pairClient rfl pairStarted_quiet
        pair_dies pairClient_blank
  exact pair_starts.tail dies

/-- The other request never arrives. -/
def pairLost : Fleet Unit := pairHalf.resolve 1 (.error ⟨.unavailable, "connection lost"⟩)

theorem pair_loses : Relation.ReflTransGen (Plant.Step smallNumpy smallNpz pairDeployment)
    ⟨pairClient, pairFleet⟩
    ⟨pairClient, pairLost⟩ :=
  pair_reaches.tail (.moved (@Fleet.Moves.lost Int Unit _ smallNumpy smallNpz pairDeployment pairHalf 1
    ⟨⟨0, 1⟩, nextRequest, none⟩ _ rfl rfl))

theorem pairLost_quiet : pairLost.Resolved := by
  intro flight member
  rcases List.mem_cons.mp member with rfl | member
  · exact Option.some_ne_none _
  · rw [List.mem_singleton.mp member]
    exact Option.some_ne_none _

/-- A repair waits for the replica that is behind. -/
theorem pair_repairs : Remote.Passes (writeNetwork smallNumpy smallNpz pairDeployment)
    ((repair : Coordinating Int (List ReplicaSync)) pairClient) pairLost pairLost := by
  refine Remote.Passes.answered (.ok (ShardServicer.status (.durable axisShard)))
    ⟨rfl, Or.inl ⟨axisLog, axisShard, rfl, rfl⟩⟩ ?_
  refine Remote.Passes.answered (.ok (ShardServicer.status (.durable emptyShard)))
    ⟨rfl, Or.inl ⟨emptyLog, emptyShard, rfl, rfl⟩⟩ ?_
  exact Remote.Passes.waiting .refl

theorem smallNumpy_steady : smallNumpy.Steady := fun _ rng => ⟨0, rng, rfl⟩

end Sample

/-! ## Every run -/

section Runs

variable {D G : Type} [LinearOrder D] {np : Numpy Float32Bits D G} {npz : Npz G} {deployment : Deployment}
  {plant next : Plant G}

/-- The replicas of a shard agree at every moment, and none is lost. -/
theorem replicas_agree (steady : np.Steady) (positive : 0 < deployment.dim) (fresh : plant.Fresh deployment)
    (run : Relation.ReflTransGen (Plant.Step np npz deployment) plant next) :
    (∀ id, deployment.Member id → ∃ state, (next.fleet.nodes id).Yields np npz (deployment.config id) state) ∧
      ∀ id other, deployment.Member id → deployment.Member other → id.shard = other.shard → ∀ first second,
        (next.fleet.nodes id).Yields np npz (deployment.config id) first →
        (next.fleet.nodes other).Yields np npz (deployment.config other) second → first.Agrees second := by
  rcases ((fresh.good positive).run steady positive run).guarded with ⟨copies, started, _, afloat⟩
  constructor
  · intro id member
    rcases afloat.stands id member with ⟨history, stands⟩
    exact stands.holds.yields
  · intro id other member others sameShard first second yields yields'
    exact afloat.agrees member others sameShard yields yields'

theorem replicas_agree_pair : axisShard.Agrees emptyShard ∧ emptyShard.Agrees axisShard := by
  have agree := (replicas_agree smallNumpy_steady Nat.zero_lt_two pair_fresh pair_reaches).2
  exact ⟨agree ⟨0, 0⟩ ⟨0, 1⟩ (by decide) (by decide) rfl _ _ (.up rfl) (.up rfl),
    agree ⟨0, 1⟩ ⟨0, 0⟩ (by decide) (by decide) rfl _ _ (.up rfl) (.up rfl)⟩

/-- No id is given to two rows: those of a shard count up, and no two shards have
one in common. -/
theorem ids_unique (steady : np.Steady) (positive : 0 < deployment.dim) (fresh : plant.Fresh deployment)
    (run : Relation.ReflTransGen (Plant.Step np npz deployment) plant next) {id : ReplicaId}
    (member : deployment.Member id)
    {state : DurableShard G} (yields : (next.fleet.nodes id).Yields np npz (deployment.config id) state) :
    state.shard.contents.globalIds.Pairwise (· < ·) ∧
      ∀ other, deployment.Member other → other.shard ≠ id.shard → ∀ second,
        (next.fleet.nodes other).Yields np npz (deployment.config other) second →
        ∀ globalId ∈ state.shard.contents.globalIds, globalId ∉ second.shard.contents.globalIds := by
  rcases ((fresh.good positive).run steady positive run).guarded with ⟨copies, started, sound, afloat⟩
  have own := afloat.ids member yields
  refine ⟨(sound.orderly.increasing _ (member_inside member)).sublist own.sublist, ?_⟩
  intro other others different second yields' globalId inside outside
  exact sound.orderly.apart _ (member_inside member) _ (member_inside others) different.symm globalId
    (own.subset inside)
    ((afloat.ids others yields').subset outside)

theorem ids_unique_pair : axisShard.shard.contents.globalIds.Pairwise (· < ·) :=
  (ids_unique smallNumpy_steady Nat.zero_lt_two pair_fresh pair_reaches
    (show pairDeployment.Member ⟨0, 0⟩ by decide) (.up rfl)).1

end Runs

/-! ## What one call does -/

section Calls

variable {D G : Type} [LinearOrder D] (np : Numpy Float32Bits D G) (npz : Npz G) (deployment : Deployment)

/-- Every replica holds these rows behind those it held before. -/
def Fleet.Gains (before after : Fleet G) (rows : ReplicaId → List (PlacedRow Float32Bits)) : Prop :=
  ∀ id, deployment.Member id → ∀ first second, (before.nodes id).Yields np npz (deployment.config id) first →
    (after.nodes id).Yields np npz (deployment.config id) second →
    second.rows = first.rows ++ (rows id).map (storedRow np)

/-- The ids of a call count up behind all that are stored. -/
structure GrpcCoordinator.AddCall.Starts (call : AddCall) (before : Fleet G) (startId : Int)
    (encoded : List String) : Prop where
  texts : call.texts = .ok encoded
  grows : call.coordinator.size ≤ startId
  fresh : ∀ id, deployment.Member id → ∀ state, (before.nodes id).Yields np npz (deployment.config id) state →
    ∀ row ∈ state.rows, row.1 < startId

/-- What a call that did not return has done: nothing, or all replicas have taken
the same number of whole chunks of their shard's rows, some of them one more. -/
inductive GrpcCoordinator.AddCall.Partly (call : AddCall) (before after : Fleet G) : Prop
  | nothing (gains : before.Gains np npz deployment after fun _ => [])
  | chunks {startId : Int} {encoded : List String} {count rounds : Nat} {taken : ReplicaId → Nat}
      (starts : call.Starts np npz deployment before startId encoded)
      (isTaken : ∀ id, taken id = rounds * count ∨ taken id = (rounds + 1) * count)
      (gains : before.Gains np npz deployment after fun id =>
        (call.rows deployment.sizes.length startId encoded id.shard).take (taken id))

variable {np npz deployment} {before after : Fleet G} {histories later : ReplicaId → History} {call : AddCall}

/-- Replicas with these histories, whether requests are under way or not. -/
def Fleet.Hold (np : Numpy Float32Bits D G) (npz : Npz G) (deployment : Deployment)
    (histories : ReplicaId → History) (fleet : Fleet G) : Prop :=
  ∀ id, deployment.Member id → (fleet.nodes id).Holds np npz (deployment.config id) deployment.dim
    (histories id)

theorem Gained.gains {rows : ReplicaId → List (PlacedRow Float32Bits)}
    (gained : Gained deployment histories later rows)
    (held : before.Hold np npz deployment histories) (holds : after.Hold np npz deployment later) :
    before.Gains np npz deployment after rows := by
  intro id member first second yields yields'
  rcases yields.running (held id member) with ⟨disk, running⟩
  rcases yields'.running (holds id member) with ⟨disk', running'⟩
  rcases gained id member with ⟨writes, isLater, isRows⟩
  rw [running.rows, running'.rows, isLater, History.extend, List.flatMap_append, gathered_stored np isRows]

theorem GrpcCoordinator.Numbered.starts {startId : Int} {encoded : List String}
    (numbered : Numbered deployment histories call startId encoded)
    (held : before.Hold np npz deployment histories) :
    call.Starts np npz deployment before startId encoded := by
  refine ⟨numbered.texts, numbered.start.grows, fun id member state yields row isRow => ?_⟩
  rcases yields.running (held id member) with ⟨disk, running⟩
  apply numbered.fresh id member
  have filled := running.sound.filled np running.contents
  rw [← filled.globalIds]
  exact (List.of_mem_zip isRow).1

theorem GrpcCoordinator.Effect.partly (effect : Effect deployment call histories later)
    (held : before.Hold np npz deployment histories) (holds : after.Hold np npz deployment later) :
    call.Partly np npz deployment before after := by
  cases effect with
  | none same =>
      have gained : Gained deployment histories later fun _ => [] := by
        intro id member
        refine ⟨[], ?_, rfl⟩
        rw [same id member, History.extend_nil]
      exact .nothing (gained.gains held holds)
  | some numbered isTaken gained => exact .chunks (numbered.starts held) isTaken (gained.gains held holds)

theorem Afloat.effect {copies : Nat → Copies Write} {first : Nat} {fleet : Fleet G}
    (afloat : Afloat np npz deployment copies first fleet) {startId : Int} {encoded : List String}
    {count rounds : Nat} {batches : List (RoutedBatch Float32Bits)}
    (dealt : Dealt deployment histories call startId encoded count batches)
    (reaches : Reaches deployment.dim count (leaders histories) batches rounds copies) :
    ∃ later, fleet.Hold np npz deployment later ∧ Effect deployment call histories later := by
  have each : ∀ id, ∃ later, deployment.Member id → Stands np npz deployment (copies id.shard)
    fleet first id later := by
    intro id
    by_cases member : deployment.Member id
    · rcases afloat.stands id member with ⟨later, stands⟩
      exact ⟨later, fun _ => stands⟩
    · exact ⟨histories id, fun isMember => absurd isMember member⟩
  choose later stands using each
  exact ⟨later, fun id member => (stands id member).holds, dealt.effect reaches fun id member =>
    (stands id member).keeps⟩

/-- All a call of `add` can have done, however it ends: when it returns every replica
has all rows of its shard; when it raises, or its process dies in the middle, whole
chunks of them. -/
theorem add_effect (steady : np.Steady) (positive : 0 < deployment.dim) {plant next : Plant G}
    (fresh : plant.Fresh deployment) (run : Relation.ReflTransGen (Plant.Step np npz deployment) plant next)
    (quiet : next.fleet.Resolved) (isClient : call.coordinator = next.client)
    (sameDim : call.vectors.dim = deployment.dim) (filled : call.vectors.rows ≠ []) :
    (∀ state last, Remote.Runs (writeNetwork np npz deployment)
        ((add call.vectors call.payloads call.name : Coordinating D PUnit) next.client) next.fleet
          (.ok ⟨⟩ state) last →
      ∃ startId encoded, call.Starts np npz deployment next.fleet startId encoded ∧
        next.fleet.Gains np npz deployment last fun id => call.rows deployment.sizes.length
          startId encoded id.shard) ∧
    (∀ error state last, Remote.Runs (writeNetwork np npz deployment)
        ((add call.vectors call.payloads call.name : Coordinating D PUnit) next.client) next.fleet
          (.error error state) last →
      call.Partly np npz deployment next.fleet last) ∧
    ∀ last, Remote.Passes (writeNetwork np npz deployment)
        ((add call.vectors call.payloads call.name : Coordinating D PUnit) next.client) next.fleet last →
      call.Partly np npz deployment next.fleet last := by
  rcases ((fresh.good positive).run steady positive run).starts quiet with ⟨copies, histories, ready⟩
  rw [← isClient] at ready ⊢
  have held : next.fleet.Hold np npz deployment histories := ready.settled.holds
  have call_ : Client.Ensures (writeNetwork np npz deployment)
      (fun fleet => ∃ later, fleet.Hold np npz deployment later ∧ Effect deployment call histories later)
      (Meets np npz deployment histories (· = call.coordinator))
      (add call.vectors call.payloads call.name : Coordinating D PUnit) _ _ :=
    add_ensures steady positive sameDim filled ready.copied ready.sound ready.informed _
      (fun _ settled => ⟨histories, settled.holds, .none fun _ _ => rfl⟩) fun dealt reaches _ afloat =>
        afloat.effect dealt reaches
  have all := call_ call.coordinator next.fleet ⟨rfl, ready.settled⟩
  refine ⟨fun state last runs => ?_, fun error state last runs => ?_, fun last pass => ?_⟩
  · rcases all.1 _ _ runs with ⟨startId, encoded, later, added⟩
    exact ⟨startId, encoded, added.numbered.starts held, added.gained.gains held added.ready.settled.holds⟩
  · rcases all.1 _ _ runs with ⟨_, later, after, effect⟩
    exact effect.partly held after.settled.holds
  · rcases all.2 _ pass with ⟨later, holds, effect⟩
    exact effect.partly held holds

theorem add_effect_pair :
    (∃ startId encoded, axisCall.Starts smallNumpy smallNpz pairDeployment pairStarted startId encoded ∧
      pairStarted.Gains smallNumpy smallNpz pairDeployment pairFull fun id =>
        axisCall.rows 1 startId encoded id.shard) ∧
    axisCall.Partly smallNumpy smallNpz pairDeployment pairStarted pairHalf := by
  have effect := add_effect smallNumpy_steady Nat.zero_lt_two pair_fresh pair_starts pairStarted_quiet
    (show axisCall.coordinator = _ from rfl) rfl (List.cons_ne_nil _ _)
  exact ⟨effect.1 _ _ pair_returns, effect.2.2 _ pair_dies⟩

/-- Once a call of `add` has returned, its rows stay on every replica of their shard,
where it put them, whatever happens later. -/
theorem acknowledged_rows_stay (steady : np.Steady) (positive : 0 < deployment.dim) {plant next : Plant G}
    (fresh : plant.Fresh deployment) (run : Relation.ReflTransGen (Plant.Step np npz deployment) plant next)
    (quiet : next.fleet.Resolved) (isClient : call.coordinator = next.client)
    (sameDim : call.vectors.dim = deployment.dim)
    (filled : call.vectors.rows ≠ []) {state : GrpcCoordinator} {last : Fleet G}
    (returned : Remote.Runs (writeNetwork np npz deployment)
      ((add call.vectors call.payloads call.name : Coordinating D PUnit) next.client) next.fleet
        (.ok ⟨⟩ state) last) :
    ∃ startId encoded, call.Starts np npz deployment next.fleet startId encoded ∧
      ∀ later : Plant G, Relation.ReflTransGen (Plant.Step np npz deployment) ⟨state, last⟩ later →
        ∀ id, deployment.Member id → ∀ first second, (next.fleet.nodes id).Yields np npz
          (deployment.config id) first →
          (later.fleet.nodes id).Yields np npz (deployment.config id) second →
          first.rows ++ (call.rows deployment.sizes.length startId encoded id.shard).map
            (storedRow np) <+: second.rows := by
  rcases ((fresh.good positive).run steady positive run).starts quiet with ⟨copies, histories, ready⟩
  rw [← isClient] at ready returned
  have call_ : Client.Ensures (writeNetwork np npz deployment) (fun _ => True)
    (Meets np npz deployment histories (· = call.coordinator))
      (add call.vectors call.payloads call.name : Coordinating D PUnit) _ _ :=
    add_ensures steady positive sameDim filled ready.copied ready.sound ready.informed _
      (fun _ _ => trivial) fun _ _ _ _ => trivial
  rcases (call_ call.coordinator next.fleet ⟨rfl, ready.settled⟩).1 _ _ returned with
    ⟨startId, encoded, reached, added⟩
  refine ⟨startId, encoded, added.numbered.starts ready.settled.holds, ?_⟩
  intro later goesOn id member first second yields yields'
  -- From here on the replicas hold at least what the call has left.
  have sound : Sound deployment (leaders reached) fun shard => Copies.even (leaders reached shard) :=
    ⟨added.ready.sound.orderly, fun _ _ => List.prefix_rfl⟩
  have good : Plant.Good np npz deployment (leaders reached) ⟨state, last⟩ :=
    .ready ⟨added.ready.settled, added.ready.copied, sound, added.ready.informed⟩
  rcases (good.run steady positive goesOn).guarded with ⟨copies', started, sound', afloat⟩
  rcases afloat.yields member yields' with ⟨history, disk', keeps, running'⟩
  rcases yields.running (ready.settled.holds id member) with ⟨disk, running⟩
  rcases added.gained id member with ⟨writes, isReached, isRows⟩
  have atLeast : (reached id).writes <+: history.writes := by
    rw [Copies.has_even.mp (added.ready.copied id member).has]
    exact (sound'.keeps id.shard (member_inside member)).trans keeps.has.begins
  have stored := atLeast.flatMap (Write.stored np)
  rw [isReached, History.extend, List.flatMap_append, gathered_stored np isRows] at stored
  rw [running.rows, running'.rows]
  exact stored

theorem acknowledged_rows_stay_pair :
    ∃ startId encoded, axisCall.Starts smallNumpy smallNpz pairDeployment pairStarted startId encoded ∧
      ∀ later : Plant Unit, Relation.ReflTransGen (Plant.Step smallNumpy smallNpz pairDeployment)
        ⟨pairWritten, pairFull⟩ later →
        ∀ id, pairDeployment.Member id → ∀ first second,
          (pairStarted.nodes id).Yields smallNumpy smallNpz (pairDeployment.config id) first →
          (later.fleet.nodes id).Yields smallNumpy smallNpz (pairDeployment.config id) second →
          first.rows ++ (axisCall.rows 1 startId encoded id.shard).map (storedRow smallNumpy) <+: second.rows :=
  acknowledged_rows_stay smallNumpy_steady Nat.zero_lt_two pair_fresh pair_starts pairStarted_quiet
    (show axisCall.coordinator = _ from rfl) rfl (List.cons_ne_nil _ _) pair_returns

/-- A repair takes nothing away, and gives a replica only what another one of its
shard has, however it ends. -/
theorem repair_effect (steady : np.Steady) (positive : 0 < deployment.dim) {plant next : Plant G}
    (fresh : plant.Fresh deployment) (run : Relation.ReflTransGen (Plant.Step np npz deployment) plant next)
    (quiet : next.fleet.Resolved) {last : Fleet G}
    (ends : (∃ result, Remote.Runs (writeNetwork np npz deployment)
      ((repair : Coordinating D _) next.client) next.fleet
        result last) ∨
      Remote.Passes (writeNetwork np npz deployment) ((repair : Coordinating D _) next.client) next.fleet last)
    {id : ReplicaId} (member : deployment.Member id) {first second : DurableShard G}
    (yields : (next.fleet.nodes id).Yields np npz (deployment.config id) first)
    (yields' : (last.nodes id).Yields np npz (deployment.config id) second) :
    first.rows <+: second.rows ∧ ∃ source, deployment.Member source ∧ source.shard = id.shard ∧
      ∀ other, (next.fleet.nodes source).Yields np npz (deployment.config source) other →
        second.rows <+: other.rows := by
  rcases ((fresh.good positive).run steady positive run).starts quiet with ⟨copies, histories, ready⟩
  have mended : ∃ later, Mended deployment histories later ∧ Settled np npz deployment later last := by
    have repairs : Client.Ensures (writeNetwork np npz deployment)
        (fun fleet => ∃ later, Mended deployment histories later ∧ Settled np npz deployment later fleet)
        (Meets np npz deployment histories (· = next.client)) (repair : Coordinating D _) _ _ :=
      repair_settled positive ready.sound ready.copied ready.informed fun later _ mended settled =>
        ⟨later, mended, settled⟩
    have all := repairs next.client next.fleet ⟨rfl, ready.settled⟩
    rcases ends with ⟨result, runs⟩ | pass
    · have after := all.1 _ _ runs
      cases result with
      | ok synced state =>
          rcases after with ⟨later, tended⟩
          exact ⟨later, tended.mended, tended.ready.settled⟩
      | error error state =>
          rcases after with ⟨later, tended⟩
          exact ⟨later, tended.mended, tended.ready.settled⟩
    · exact all.2 _ pass
  rcases mended with ⟨later, mended, settled⟩
  rcases mended id member with ⟨front, source, isSource, sameShard, back⟩
  rcases yields.running (ready.settled.holds id member) with ⟨disk, running⟩
  rcases yields'.running (settled.holds id member) with ⟨disk', running'⟩
  rw [running.rows, running'.rows]
  refine ⟨front.writes.flatMap _, source, isSource, sameShard, fun other yields'' => ?_⟩
  rcases yields''.running (ready.settled.holds source isSource) with ⟨disk'', running''⟩
  rw [running''.rows]
  exact back.writes.flatMap _

theorem repair_effect_pair : emptyShard.rows <+: emptyShard.rows ∧ ∃ source,
    pairDeployment.Member source ∧ source.shard = 0 ∧
    ∀ other, (pairLost.nodes source).Yields smallNumpy smallNpz (pairDeployment.config source) other →
      emptyShard.rows <+: other.rows :=
  repair_effect smallNumpy_steady Nat.zero_lt_two pair_fresh pair_loses pairLost_quiet (Or.inr pair_repairs)
    (show pairDeployment.Member ⟨0, 1⟩ by decide) (.up rfl) (.up rfl)

end Calls

end VectorSearch
