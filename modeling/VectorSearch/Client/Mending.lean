import VectorSearch.Client.Added

namespace VectorSearch

/-!
# Repair among writers

`repair` on the replicas that the coordinators write to.  A copy may break off,
a replica may die in it, and the call may raise; whatever happens, a replica has
kept what it had and taken over a part of what another one of its shard has
more.  So the replicas stay copies of one history.
-/

open Program Stateful

/-! ## One copy -/

section Copying

variable {D G : Type} [LinearOrder D] {np : Numpy Float32Bits D G} {npz : Npz G}

/-- A peer that takes no write, seen with another history that fits it as well. -/
theorem Timeline.relabel {config : Config} {dim : Nat} (peer : Timeline np npz config dim)
    (quiet : ∀ time, (peer.at_ time).history = (peer.at_ 0).history) {history : History}
    (shaped : history.Shaped)
    (running : Running np npz config dim history (peer.at_ 0).state (peer.at_ 0).disk) :
    ∃ same : Timeline np npz config dim,
      (∀ time, same.at_ time = ⟨history, (peer.at_ time).state, (peer.at_ time).disk⟩) ∧
      ∀ replies, Answered np npz peer replies → Answered np npz same replies := by
  have step : ∀ {first next : Replica G}, Replica.Moves np npz config dim first next →
      first.history.length = next.history.length →
      Replica.Moves np npz config dim ⟨history, first.state, first.disk⟩ ⟨history, next.state, next.disk⟩ := by
    intro first next moves same
    cases moves with
    | @wrote write payloads seq state disk given uniform wide run =>
        rw [History.length, History.length, History.push, List.length_append] at same
        exact absurd same (Nat.ne_of_lt (Nat.lt_succ_self _))
    | checkpointed run => exact .checkpointed run
    | restarted run => exact .restarted run
  have path : ∀ {first last : Replica G}, Relation.ReflTransGen (Replica.Moves np npz config dim) first last →
      first.Alive np npz config dim → first.history.Shaped → first.history.length = last.history.length →
      Relation.ReflTransGen (Replica.Moves np npz config dim) ⟨history, first.state, first.disk⟩
        ⟨history, last.state, last.disk⟩ := by
    intro first last steps alive isShaped same
    induction steps with
    | refl => exact .refl
    | @tail middle last front back inductionHypothesis =>
        rcases Timeline.steps front alive isShaped with ⟨middleAlive, middleShaped, grown⟩
        have more := (back.keeps np npz middleAlive middleShaped).2.2
        have upper := grown.begins.length_le
        have lower := more.begins.length_le
        exact (inductionHypothesis (by omega)).tail (step back (by omega))
  refine ⟨⟨fun time => ⟨history, (peer.at_ time).state, (peer.at_ time).disk⟩, running, shaped, fun time => ?_⟩,
    fun _ => rfl, fun replies answered => ⟨answered.log, answered.snapshot⟩⟩
  refine path (peer.moves time) (peer.sound time).1 (peer.sound time).2 ?_
  rw [quiet time, quiet (time + 1)]

variable {deployment : Deployment} {histories : ReplicaId → History} {fleet last : Fleet G}
  {id source : ReplicaId} {address : String} {answer : Except RpcError SyncFromResponse}

theorem Settled.put (settled : Settled np npz deployment histories fleet) {node : Node G} {history : History}
    (holds : node.Holds np npz (deployment.config id) deployment.dim history) :
    Settled np npz deployment (Function.update histories id history) (fleet.put id node) := by
  refine ⟨fun other member => ?_, settled.resolved⟩
  by_cases same : other = id
  · subst same
    rw [Function.update_self, Fleet.put_nodes_self]
    exact holds
  · rw [Function.update_of_ne same, Fleet.put_nodes_of_ne _ same]
    exact settled.holds other member

/-- A replica that holds the same history as before. -/
theorem Settled.replace (settled : Settled np npz deployment histories fleet) {node : Node G}
    (holds : node.Holds np npz (deployment.config id) deployment.dim (histories id)) :
    Settled np npz deployment histories (fleet.put id node) := by
  have put := settled.put holds
  rwa [Function.update_eq_self] at put

/-- A copy from a replica that is ahead gives a replica a part of what it lacks,
and all of it when the copy succeeds. -/
theorem Settled.syncs (settled : Settled np npz deployment histories fleet)
    (syncs : fleet.Syncs np npz deployment id address answer last)
    (isPeer : deployment.peerAt address = some source) (member : deployment.Member id)
    (sourceMember : deployment.Member source) (shaped : (histories source).Shaped)
    (begins : (histories id).Begins (histories source)) :
    ∃ history, (histories id).Begins history ∧ history.Begins (histories source) ∧
      Settled np npz deployment (Function.update histories id history) last ∧
      ∀ response, answer = .ok response → history = histories source := by
  have holds := settled.holds id member
  have sourceHolds := settled.holds source sourceMember
  cases syncs with
  | @ended found disk state peer replies outcome _ isFound alive now quiet answered run learns =>
      cases isPeer.symm.trans isFound
      rw [alive] at holds
      rw [now] at sourceHolds
      rcases peer.relabel quiet shaped sourceHolds with ⟨same, isSame, transfers⟩
      have back : (histories id).Begins (same.at_ 0).history := by
        rw [isSame]
        exact begins
      rcases syncFrom_catches np npz (transfers replies answered) address back holds with
        ⟨history, front, behind, running, complete⟩
      rw [isSame, run] at behind complete
      rw [run] at running
      refine ⟨history, front, behind, ?_, ?_⟩
      · refine (settled.replace ?_).put running
        have later := (same.sound outcome.world.answered).1
        rw [isSame] at later
        exact later
      · rintro response rfl
        cases learns with
        | response returned => exact complete returned
  | @crashed found disk state peer replies left error isFound alive now quiet answered crash =>
      cases isPeer.symm.trans isFound
      rw [alive] at holds
      rw [now] at sourceHolds
      rcases peer.relabel quiet shaped sourceHolds with ⟨same, isSame, transfers⟩
      have back : (histories id).Begins (same.at_ 0).history := by
        rw [isSame]
        exact begins
      have caught := catchUp_ensures np npz (transfers replies answered) address
        DurableShard.defaultAttempts back holds
      rcases Covers.crashed exchange caught.1 crash.of_mapError with ⟨history, front, behind, recoverable⟩
      rw [isSame] at behind
      refine ⟨history, front, behind, (settled.replace ?_).put recoverable.abandoned, ?_⟩
      · have later := (same.sound left.answered).1
        rw [isSame] at later
        exact later
      · intro response impossible
        cases impossible
  | unreached error =>
      refine ⟨histories id, .refl _, begins, ?_, ?_⟩
      · rw [Function.update_eq_self]
        exact settled
      · intro response impossible
        cases impossible

/-! ## What a repair keeps -/

/-- Every replica has kept what it had, and has at most what another one of its
shard had. -/
def Mended (deployment : Deployment) (histories later : ReplicaId → History) : Prop :=
  ∀ id, deployment.Member id → (histories id).Begins (later id) ∧ ∃ source, deployment.Member source ∧
    source.shard = id.shard ∧ (later id).Begins (histories source)

theorem Mended.refl (deployment : Deployment) (histories : ReplicaId → History) :
    Mended deployment histories histories :=
  fun id member => ⟨.refl _, id, member, rfl, .refl _⟩

theorem Mended.trans {middle later : ReplicaId → History} (front : Mended deployment histories middle)
    (back : Mended deployment middle later) : Mended deployment histories later := by
  intro id member
  rcases back id member with ⟨more, source, isSource, sameShard, upper⟩
  rcases front source isSource with ⟨_, origin, isOrigin, same, above⟩
  exact ⟨(front id member).1.trans more, origin, isOrigin, same.trans sameShard, upper.trans above⟩

/-- One replica has taken over a part of what another one has. -/
theorem Mended.update {history : History} (sourceMember : deployment.Member source)
    (sameShard : source.shard = id.shard)
    (front : (histories id).Begins history) (back : history.Begins (histories source)) :
    Mended deployment histories (Function.update histories id history) := by
  intro other member
  by_cases same : other = id
  · subst same
    rw [Function.update_self]
    exact ⟨front, source, sourceMember, sameShard, back⟩
  · rw [Function.update_of_ne same]
    exact Mended.refl deployment histories other member

variable {copies : Nat → Copies Write} {later : ReplicaId → History}

/-- The replicas stay copies. -/
theorem Mended.copied (mended : Mended deployment histories later)
    (copied : Copied deployment copies histories) : Copied deployment copies later := by
  intro id member
  rcases mended id member with ⟨front, source, isSource, sameShard, back⟩
  have others := copied source isSource
  rw [sameShard] at others
  exact (copied id member).between others front back

/-- What is known of a shard is that its replicas are equal, and then they stay as
they are. -/
theorem Mended.informed (mended : Mended deployment histories later) {state : GrpcCoordinator}
    (informed : state.Informed deployment histories) : state.Informed deployment later := by
  refine ⟨informed.deployed, fun shard position isPosition => ?_⟩
  refine (informed.known shard position isPosition).imp_right ?_
  rintro ⟨seq, agreed, each⟩
  refine ⟨seq, agreed, fun id member => ?_⟩
  have own := deployment.group_shard member
  rcases mended id (deployment.member_of_group member) with ⟨front, source, isSource, sameShard, back⟩
  have inGroup : source ∈ deployment.group shard := by
    have listed : source ∈ deployment.group source.shard := isSource
    rwa [sameShard, own] at listed
  have same : histories id = later id := by
    apply front.antisymm
    rw [(each id member).1, ← (each source inGroup).1]
    exact back.length_le
  rw [← same]
  exact each id member

end Copying

namespace GrpcCoordinator

/-! ## The coordinator's loops -/

section Loops

variable {D G : Type} [LinearOrder D] {np : Numpy Float32Bits D G} {npz : Npz G} {deployment : Deployment}
  {always : Fleet G → Prop} {origin : Nat → List Write} {copies : Nat → Copies Write}
  {histories : ReplicaId → History} {start : GrpcCoordinator}

/-- The vectors of what the replicas hold have a dimension. -/
theorem Sound.shaped (sound : Sound deployment origin copies) (positive : 0 < deployment.dim)
    (copied : Copied deployment copies histories) {id : ReplicaId} (member : deployment.Member id) :
    (histories id).Shaped := by
  intro write isWrite
  rw [sound.orderly.shaped id.shard (member_inside member) write ((copied id member).has.within.subset isWrite)]
  exact positive

/-- A coordinator that knows what it knew before. -/
structure Alike (start state : GrpcCoordinator) : Prop where
  replicas : state.replicas = start.replicas
  lastSeqs : state.lastSeqs = start.lastSeqs
  size : state.size = start.size

theorem Alike.informed {state : GrpcCoordinator} (alike : Alike start state)
    (informed : start.Informed deployment histories) :
    state.Informed deployment histories where
  deployed := informed.deployed.of_same alike.replicas (congrArg List.length alike.lastSeqs)
  known := by
    intro shard position isPosition
    rw [alike.lastSeqs] at isPosition
    rw [alike.size]
    exact informed.known shard position isPosition

theorem answering_settled (good : ∀ fleet, Settled np npz deployment histories fleet → always fleet)
    {fact : GrpcCoordinator → Prop} (ids : List ReplicaId) (members : ∀ id ∈ ids, deployment.Member id) :
    Client.Ensures (writeNetwork np npz deployment) always (Meets np npz deployment histories fact)
      (answering ids : Coordinating D _)
      (fun statuses state fleet => Meets np npz deployment histories fact state fleet ∧
        Heard histories ids statuses)
      fun _ => Meets np npz deployment histories fact := by
  induction ids with
  | nil =>
      apply Client.Ensures.pure
      intro state fleet holds
      exact ⟨holds, List.Sublist.refl _, fun _ impossible => absurd impossible List.not_mem_nil⟩
  | cons id rest inductionHypothesis =>
      have later := inductionHypothesis fun other member => members other (List.mem_cons_of_mem _ member)
      have asks : Client.Ensures (writeNetwork np npz deployment) always
        (Meets np npz deployment histories fact)
          (Client.call (Rpc.status id) : Coordinating D _)
          (fun answer state fleet => Meets np npz deployment histories fact state fleet ∧
            ∀ status, answer = .ok status → status.lastSeq = (histories id).length)
          fun _ => Meets np npz deployment histories fact := by
        apply Client.Ensures.call (fun state => Settled.stable state) (fun _ fleet holds => good fleet holds.2)
        rintro state fleet answer last ⟨isFact, settled⟩ ⟨rfl, given⟩
        refine ⟨⟨isFact, settled⟩, ?_⟩
        rintro status rfl
        rcases given with ⟨disk, durable, alive, isStatus⟩ | ⟨error, impossible⟩
        · cases isStatus
          have running := settled.holds id (members id List.mem_cons_self)
          rw [alive] at running
          exact running.lastSeq
        · cases impossible
      refine Client.Ensures.bind asks fun answer => ?_
      apply Client.Ensures.given
      intro length
      cases answer with
      | ok status =>
          refine Client.Ensures.bind later fun statuses => ?_
          apply Client.Ensures.given
          intro heard
          apply Client.Ensures.pure
          intro state fleet holds
          refine ⟨holds, heard.within.cons_cons id, fun item member => ?_⟩
          rcases List.mem_cons.mp member with rfl | old
          · exact length status rfl
          · exact heard.lengths item old
      | error error =>
          dsimp only
          split
          · refine later.imp (fun _ _ holds => holds) ?_ fun _ _ _ holds => holds
            rintro statuses state fleet ⟨holds, heard⟩
            exact ⟨holds, heard.within.cons id, heard.lengths⟩
          · exact Client.Ensures.throw fun _ _ holds => holds

/-- The replicas have been mended, as far as that went. -/
def Mending (np : Numpy Float32Bits D G) (npz : Npz G) (deployment : Deployment)
    (histories : ReplicaId → History) (start state : GrpcCoordinator) (fleet : Fleet G) : Prop :=
  ∃ later, Mended deployment histories later ∧ Meets np npz deployment later (Alike start) state fleet

section Syncing

variable (positive : 0 < deployment.dim) (sound : Sound deployment origin copies)
  (deployed : start.Deployed deployment)

include positive sound deployed

/-- The replicas that are behind copy from the newest one, until a copy fails. -/
theorem syncBehind_settled {source : ReplicaId} {newest : StatusResponse} (isSource : deployment.Member source)
    (statuses : List (ReplicaId × StatusResponse)) (copied : Copied deployment copies histories)
    (good : ∀ later fleet, Mended deployment histories later → Settled np npz deployment later fleet →
      always fleet)
    (isNewest : newest.lastSeq = (histories source).length) (unique : (statuses.map Prod.fst).Nodup)
    (members : ∀ item ∈ statuses, deployment.Member item.1 ∧ item.1.shard = source.shard)
    (lengths : ∀ item ∈ statuses, item.2.lastSeq = (histories item.1).length) :
    Client.Ensures (writeNetwork np npz deployment) always
      (Meets np npz deployment histories (Alike start)) (syncBehind source newest statuses : Coordinating D _)
      (fun _ => Mending np npz deployment histories start) fun _ =>
        Mending np npz deployment histories start := by
  induction statuses generalizing histories with
  | nil =>
      apply Client.Ensures.pure
      intro state fleet holds
      exact ⟨histories, Mended.refl _ _, holds⟩
  | cons item rest inductionHypothesis =>
      rcases item with ⟨id, status⟩
      rw [List.map_cons, List.nodup_cons] at unique
      rcases members _ List.mem_cons_self with ⟨member, sameShard⟩
      have isLength := lengths _ List.mem_cons_self
      unfold syncBehind
      split
      · rename_i behind
        have begins : (histories id).Begins (histories source) := by
          have others := copied source isSource
          rw [← sameShard] at others
          apply (copied id member).begins others
          rw [← isNewest, ← isLength]
          exact Nat.le_of_lt behind
        have different : source ≠ id := by
          rintro rfl
          rw [isNewest, ← isLength] at behind
          exact absurd behind (Nat.lt_irrefl _)
        refine Client.Ensures.get_bind fun coordinator => ?_
        have syncs : Client.Ensures (writeNetwork np npz deployment) always
            (fun state fleet => state = coordinator ∧ Meets np npz deployment histories
              (Alike start) state fleet)
            (Client.call (Rpc.syncFrom id (coordinator.stub source).peer) : Coordinating D _)
            (fun _ state fleet => ∃ history, Meets np npz deployment
              (Function.update histories id history) (Alike start) state fleet ∧
              (histories id).Begins history ∧ history.Begins (histories source))
            fun _ => Mending np npz deployment histories start := by
          apply Client.Ensures.call
          · rintro state fleet next ⟨same, alike, settled⟩ moves
            exact ⟨same, alike, settled.moves moves⟩
          · rintro state fleet ⟨_, _, settled⟩
            exact good _ _ (Mended.refl _ _) settled
          · rintro state fleet answer last ⟨rfl, alike, settled⟩ syncs
            have isPeer : deployment.peerAt (state.stub source).peer = some source := by
              rw [stub_congr alike.replicas]
              exact deployed.peers source isSource
            rcases settled.syncs syncs isPeer member isSource (sound.shaped positive copied isSource)
              begins with ⟨history, front, back, later, _⟩
            exact ⟨history, ⟨alike, later⟩, front, back⟩
        refine Client.Ensures.bind syncs fun answer => Client.Ensures.some fun history =>
          Client.Ensures.given fun between => ?_
        have mended := Mended.update isSource sameShard.symm between.1 between.2
        cases answer with
        | error error =>
            apply Client.Ensures.throw
            intro state fleet holds
            exact ⟨_, mended, holds⟩
        | ok response =>
            have others : ∀ item ∈ rest, Function.update histories id history item.1 = histories item.1 := by
              intro item isItem
              refine Function.update_of_ne ?_ _ _
              rintro rfl
              exact unique.1 (List.mem_map.mpr ⟨item, isItem, rfl⟩)
            have later := inductionHypothesis (mended.copied copied)
              (fun last fleet more => good last fleet (mended.trans more))
              (by rw [Function.update_of_ne different, isNewest]) unique.2
              (fun item isItem => members item (List.mem_cons_of_mem _ isItem))
              (fun item isItem => by
                rw [others item isItem]
                exact lengths item (List.mem_cons_of_mem _ isItem))
            have onwards : ∀ state fleet, Mending np npz deployment (Function.update histories id history)
              start state fleet →
                Mending np npz deployment histories start state fleet := by
              rintro state fleet ⟨last, more, holds⟩
              exact ⟨last, mended.trans more, holds⟩
            refine Client.Ensures.bind (later.imp (fun _ _ holds => holds) (fun _ => onwards) fun _ =>
              onwards) fun synced => ?_
            exact Client.Ensures.pure fun _ _ holds => holds
      · exact inductionHypothesis copied good isNewest unique.2
          (fun item isItem => members item (List.mem_cons_of_mem _ isItem))
          fun item isItem => lengths item (List.mem_cons_of_mem _ isItem)

theorem repairShard_settled (copied : Copied deployment copies histories)
    (good : ∀ later fleet, Mended deployment histories later → Settled np npz deployment later fleet →
      always fleet)
    (shard : Nat) :
    Client.Ensures (writeNetwork np npz deployment) always
      (Meets np npz deployment histories (Alike start)) (repairShard shard : Coordinating D _)
      (fun _ => Mending np npz deployment histories start) fun _ =>
        Mending np npz deployment histories start := by
  have unchanged : ∀ state fleet, Meets np npz deployment histories (Alike start) state fleet →
      Mending np npz deployment histories start state fleet := fun _ _ holds =>
        ⟨histories, Mended.refl _ _, holds⟩
  refine Client.Ensures.get_bind fun read => ?_
  by_cases alike : Alike start read
  · have isGroup : read.replicasOf shard = deployment.group shard :=
      (deployed.of_same alike.replicas (congrArg List.length alike.lastSeqs)).replicasOf shard
    rw [isGroup]
    have asks : Client.Ensures (writeNetwork np npz deployment) always
        (Meets np npz deployment histories (Alike start)) (answering (deployment.group shard) :
          Coordinating D _) _ _ :=
      answering_settled (fun fleet settled => good _ _ (Mended.refl _ _) settled) _ fun id member =>
        deployment.member_of_group member
    refine Client.Ensures.bind (asks.imp (fun _ _ holds => holds.2) (fun _ _ _ holds => holds) fun _ =>
      unchanged)
      fun statuses => ?_
    apply Client.Ensures.given
    intro heard
    cases found : newest statuses with
    | none =>
        apply Client.Ensures.pure
        exact unchanged
    | some best =>
        rcases best with ⟨source, status⟩
        rcases newest_spec found with ⟨isBest, _⟩
        have inGroup : ∀ item ∈ statuses, item.1 ∈ deployment.group shard :=
          fun item isItem => heard.within.subset (List.mem_map_of_mem isItem)
        have members : ∀ item ∈ statuses, deployment.Member item.1 ∧ item.1.shard = source.shard := by
          intro item isItem
          refine ⟨deployment.member_of_group (inGroup item isItem), ?_⟩
          exact (deployment.group_shard (inGroup item isItem)).trans
            (deployment.group_shard (inGroup _ isBest)).symm
        have unique : (statuses.map Prod.fst).Nodup := by
          refine heard.within.nodup ?_
          unfold Deployment.group
          exact List.nodup_range.map fun _ _ same => congrArg ReplicaId.place same
        refine Client.Ensures.bind
          (syncBehind_settled positive sound deployed (members _ isBest).1 statuses copied good
          (heard.lengths _ isBest) unique members heard.lengths) fun synced => ?_
        refine Client.Ensures.through (fun _ => Mending np npz deployment histories start) ?_ fun _ =>
          Client.Ensures.pure fun _ _ holds => holds
        apply Client.Ensures.modify
        rintro state fleet ⟨later, mended, alike, settled⟩
        exact ⟨later, mended, ⟨alike.replicas, alike.lastSeqs, alike.size⟩, settled⟩
  · rintro state fleet ⟨rfl, holds, _⟩
    exact absurd holds alike

/-- One shard after the other.  The induction is on the shards; those before have
been mended. -/
theorem repairShards_settled (shards : List Nat) (copied : Copied deployment copies histories)
    (good : ∀ later fleet, Mended deployment histories later → Settled np npz deployment later fleet →
      always fleet) :
    Client.Ensures (writeNetwork np npz deployment) always
      (Meets np npz deployment histories (Alike start)) (repairShards shards : Coordinating D _)
      (fun _ => Mending np npz deployment histories start) fun _ =>
        Mending np npz deployment histories start := by
  induction shards generalizing histories with
  | nil =>
      apply Client.Ensures.pure
      intro state fleet holds
      exact ⟨histories, Mended.refl _ _, holds⟩
  | cons shard rest inductionHypothesis =>
      refine Client.Ensures.bind (repairShard_settled positive sound deployed copied good shard)
        fun synced => ?_
      refine Client.Ensures.bind (Client.Ensures.some fun later => Client.Ensures.imp
        (Client.Ensures.given fun mended => ?rest) (fun state fleet holds => show
          Meets np npz deployment later (Alike start) state fleet ∧ Mended deployment histories later
            from ⟨holds.2, holds.1⟩)
        (fun _ _ _ holds => holds) fun _ _ _ holds => holds) fun more =>
          Client.Ensures.pure fun _ _ holds => holds
      have onwards : ∀ state fleet, Mending np npz deployment later start state fleet →
          Mending np npz deployment histories start state fleet := by
        rintro state fleet ⟨last, more, holds⟩
        exact ⟨last, mended.trans more, holds⟩
      exact (inductionHypothesis (mended.copied copied) fun last fleet more => good last fleet
        (mended.trans more)).imp (fun _ _ holds => holds) (fun _ => onwards) fun _ => onwards

end Syncing

/-- After a repair, however it ended: a replica has at most what others of its shard
had, and nothing was taken away. -/
structure Tended (np : Numpy Float32Bits D G) (npz : Npz G) (deployment : Deployment)
    (origin : Nat → List Write) (copies : Nat → Copies Write) (histories later : ReplicaId → History)
    (start state : GrpcCoordinator) (fleet : Fleet G) :
    Prop where
  mended : Mended deployment histories later
  ready : Ready np npz deployment origin copies later state fleet
  size : state.size = start.size

theorem repair_settled (positive : 0 < deployment.dim) (sound : Sound deployment origin copies)
    (copied : Copied deployment copies histories) (informed : start.Informed deployment histories)
    (good : ∀ later fleet, Mended deployment histories later → Settled np npz deployment later fleet →
      always fleet) :
    Client.Ensures (writeNetwork np npz deployment) always
      (Meets np npz deployment histories (· = start)) (repair : Coordinating D _)
      (fun _ state fleet => ∃ later, Tended np npz deployment origin copies histories later start state fleet)
      fun _ state fleet => ∃ later, Tended np npz deployment origin copies histories later
        start state fleet := by
  refine Client.Ensures.get_bind fun read => ?_
  have shards : Client.Ensures (writeNetwork np npz deployment) always
      (Meets np npz deployment histories (Alike start)) (repairShards (List.range read.numShards) :
        Coordinating D _) _ _ :=
    repairShards_settled positive sound informed.deployed _ copied good
  refine Client.Ensures.bind (shards.imp ?_ (fun _ _ _ holds => holds) ?_) fun synced => ?_
  · rintro state fleet ⟨_, rfl, settled⟩
    exact ⟨⟨rfl, rfl, rfl⟩, settled⟩
  · rintro _ state fleet ⟨later, mended, alike, settled⟩
    exact ⟨later, mended, ⟨settled, mended.copied copied, sound, mended.informed
      (alike.informed informed)⟩, alike.size⟩
  · refine Client.Ensures.through (fun _ state fleet => ∃ later,
      Tended np npz deployment origin copies histories later start state fleet) ?_ fun _ =>
        Client.Ensures.pure fun _ _ holds => holds
    apply Client.Ensures.modify
    rintro state fleet ⟨later, mended, alike, settled⟩
    exact ⟨later, mended, ⟨settled, mended.copied copied, sound,
      (alike.informed informed).deployed.informed_forget⟩, alike.size⟩

end Loops

end GrpcCoordinator

end VectorSearch
